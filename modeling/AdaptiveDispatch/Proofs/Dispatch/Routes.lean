import AdaptiveDispatch.Proofs.Dispatch.Run

/-!
# The answers to one shape

A run mixes calls with many shapes. Here the answers to one of them are taken out of the
run and described as a whole. A shape is settled by its first call: either it is
installed there and found by every later call, or it takes the fallback there and ever
after. Nothing that happens to other shapes in between makes a difference.

Two states explain this. An installed shape stays installed, and a shape that is
`Barred`, because no rule accepts it or because the cache is full without it, stays
barred.
-/

namespace AdaptiveDispatch

variable {σ ι : Type} [DecidableEq σ]

/-- The position of the entry that a call used or made. -/
def Route.position? : Route → Option Nat
  | .cached order | .installed order => some order
  | .generic => none

/-- The position of the entry that a call made. -/
def Route.installed? : Route → Option Nat
  | .installed order => some order
  | .cached _ | .generic => none

/-- No rule accepts a shape, or at least as many other accepted shapes as the limit
allows come before it in a run. -/
def RuleTable.TurnsAway [ShapeDomain σ] (table : RuleTable σ ι) (limit : Nat) (run : List σ)
    (shape : σ) : Prop :=
  table.accepted shape = false ∨
    limit ≤ (table.newcomers (run.takeWhile fun other => decide (other ≠ shape))).length

namespace InlineCache

/-- The answers to the calls with one shape, in order. -/
def answersTo (cache : InlineCache σ ι) (run : List σ) (shape : σ) : List (Selection ι) :=
  ((run.zip (cache.answers run)).filter fun call => decide (call.1 = shape)).map (·.2)

variable {cache : InlineCache σ ι} {shape : σ} {run : List σ}

theorem answersTo_cons_self (cache : InlineCache σ ι) (shape : σ) (run : List σ) :
    cache.answersTo (shape :: run) shape =
      (cache.select shape).1 :: (cache.select shape).2.answersTo run shape := by
  simp [answersTo, answers]

theorem answersTo_cons_of_ne {first : σ} (other : first ≠ shape) (cache : InlineCache σ ι)
    (run : List σ) :
    cache.answersTo (first :: run) shape = (cache.select first).2.answersTo run shape := by
  simp [answersTo, answers, other]

theorem answersTo_append (cache : InlineCache σ ι) (run more : List σ) (shape : σ) :
    cache.answersTo (run ++ more) shape =
      cache.answersTo run shape ++ (cache.after run).answersTo more shape := by
  unfold answersTo
  rw [answers_append, List.zip_append (length_answers cache run).symm, List.filter_append,
    List.map_append]

/-- A shape that is not called gets no answers. -/
theorem answersTo_of_not_mem (cache : InlineCache σ ι) (absent : shape ∉ run) :
    cache.answersTo run shape = [] := by
  induction run generalizing cache with
  | nil => rfl
  | cons first run ih =>
      rw [List.mem_cons, not_or] at absent
      rw [answersTo_cons_of_ne (Ne.symm absent.1), ih _ absent.2]

variable [ShapeDomain σ]

/-- A call with any shape leaves an installed shape where it is. -/
theorem find?_select {entry : CacheEntry σ ι} (found : cache.find? shape = some entry)
    (valid : cache.table.Valid) (other : σ) :
    (cache.select other).2.find? shape = some entry :=
  find?_of_prefix found (entries_prefix_select valid other)

/-- An installed shape is found by every call. -/
theorem answersTo_of_find? {entry : CacheEntry σ ι} (found : cache.find? shape = some entry)
    (valid : cache.table.Valid) (run : List σ) :
    cache.answersTo run shape =
      List.replicate (run.count shape) ⟨entry.implementation, .cached entry.order⟩ := by
  induction run generalizing cache with
  | nil => rfl
  | cons first run ih =>
      have still := find?_select found valid first
      have rest := ih still (valid_select valid first)
      by_cases same : first = shape
      · subst same
        rw [answersTo_cons_self, rest, List.count_cons_self, List.replicate_succ,
          select_of_find?_eq_some found]
        rfl
      · rw [answersTo_cons_of_ne same, rest, List.count_cons_of_ne same]

/-- A shape is not installed, and no call can install it any more. -/
def Barred (cache : InlineCache σ ι) (shape : σ) : Prop :=
  shape ∉ cache.shapes ∧
    (cache.table.accepted shape = false ∨ cache.limit ≤ cache.entries.length)

/-- Were a rule to accept a barred shape, there would be no room for it. -/
theorem Barred.full {rule : Rule σ ι} (barred : cache.Barred shape)
    (accepts : cache.table.Accepts shape rule) : cache.limit ≤ cache.entries.length := by
  rcases barred.2 with unaccepted | full
  · rw [accepts.accepted] at unaccepted
    cases unaccepted
  · exact full

theorem Barred.select (barred : cache.Barred shape) (valid : cache.table.Valid) (other : σ) :
    (cache.select other).2.Barred shape := by
  have step := select_step valid other
  generalize cache.select other = result at step ⊢
  cases step with
  | hit _ | unruled _ _ | full _ _ _ => exact barred
  | install _ accepts room =>
      have different : shape ≠ other := by
        rintro rfl
        have full := barred.full accepts
        omega
      refine ⟨?_, ?_⟩
      · rw [install_shapes, List.mem_append, List.mem_singleton, not_or]
        exact ⟨barred.1, different⟩
      · rcases barred.2 with unaccepted | full
        · exact .inl unaccepted
        · omega

/-- A barred shape takes the fallback. -/
theorem Barred.select_answer (barred : cache.Barred shape) (valid : cache.table.Valid) :
    (cache.select shape).1 = ⟨cache.table.fallback, .generic⟩ := by
  have step := select_step valid shape
  generalize cache.select shape = result at step ⊢
  cases step with
  | hit found => exact absurd (mem_shapes_of_find? found) barred.1
  | unruled _ _ => rfl
  | full _ _ _ => rfl
  | install _ accepts room =>
      have full := barred.full accepts
      omega

theorem answersTo_of_barred (barred : cache.Barred shape) (valid : cache.table.Valid)
    (run : List σ) :
    cache.answersTo run shape =
      List.replicate (run.count shape) ⟨cache.table.fallback, .generic⟩ := by
  induction run generalizing cache with
  | nil => rfl
  | cons first run ih =>
      have rest := ih (barred.select valid first) (valid_select valid first)
      rw [select_table] at rest
      by_cases same : first = shape
      · subst same
        rw [answersTo_cons_self, rest, List.count_cons_self, List.replicate_succ,
          barred.select_answer valid]
      · rw [answersTo_cons_of_ne same, rest, List.count_cons_of_ne same]

/-- The calls that install an entry make them in the order of their positions. -/
theorem range_append_installed (valid : cache.table.Valid) (run : List σ) :
    List.range cache.entries.length ++
        (cache.answers run).filterMap (fun answer => answer.route.installed?) =
      List.range (cache.after run).entries.length := by
  induction run generalizing cache with
  | nil => simp [answers]
  | cons first run ih =>
      have rest := ih (valid_select valid first)
      rw [after_cons, ← rest, answers]
      have step := select_step valid first
      generalize cache.select first = result at step ⊢
      cases step with
      | hit _ | unruled _ _ | full _ _ _ => rfl
      | install _ _ _ =>
          rw [install_entries, List.length_append, List.length_singleton, List.range_succ,
            List.append_assoc]
          rfl

/-- The position in an answer leads to the shape that was called. -/
theorem getElem?_shapes_select {order : Nat} (numbered : cache.Numbered)
    (valid : cache.table.Valid) (shape : σ)
    (used : (cache.select shape).1.route.position? = some order) :
    (cache.select shape).2.shapes[order]? = some shape := by
  have step := select_step valid shape
  generalize cache.select shape = result at step used ⊢
  cases step with
  | hit found =>
      cases used
      exact numbered.getElem?_shapes found
  | unruled _ _ => cases used
  | full _ _ _ => cases used
  | install _ _ _ =>
      cases used
      rw [install_shapes, ← length_shapes, List.getElem?_concat_length]

theorem getElem?_shapes_of_answer {answer : Selection ι} {order : Nat}
    (numbered : cache.Numbered) (valid : cache.table.Valid)
    (member : (shape, answer) ∈ run.zip (cache.answers run))
    (used : answer.route.position? = some order) :
    (cache.after run).shapes[order]? = some shape := by
  induction run generalizing cache with
  | nil => cases member
  | cons first run ih =>
      have valid' := valid_select valid first
      rw [answers, List.zip_cons_cons, List.mem_cons, Prod.mk.injEq] at member
      rcases member with ⟨rfl, rfl⟩ | later
      · have here := getElem?_shapes_select numbered valid shape used
        obtain ⟨bound, _⟩ := List.getElem?_eq_some_iff.mp here
        obtain ⟨more, grown⟩ := shapes_prefix_after valid' run
        rw [after_cons, ← grown, List.getElem?_append_left bound]
        exact here
      · exact ih (numbered.select valid first) valid' later

/-- A shape that is new to a cache with room is installed by its first call and found by
every later one. -/
theorem answersTo_of_room {rule : Rule σ ι} (unseen : shape ∉ cache.shapes)
    (accepts : cache.table.Accepts shape rule) (room : cache.entries.length < cache.limit)
    (valid : cache.table.Valid) (run : List σ) :
    cache.answersTo (shape :: run) shape =
      ⟨rule.implementation, .installed cache.entries.length⟩ ::
        List.replicate (run.count shape)
          ⟨rule.implementation, .cached cache.entries.length⟩ := by
  obtain ⟨number, ruled⟩ := valid.exists_ruleFor?_iff.mpr accepts
  have missing := find?_eq_none_iff.mpr unseen
  have found : (cache.install shape rule).2.find? shape =
      some ⟨shape, rule.name, cache.entries.length, rule.implementation⟩ := by
    unfold find? at missing ⊢
    rw [install_entries, List.find?_append, missing]
    simp
  rw [answersTo_cons_self, select_of_room missing ruled room, answersTo_of_find? found valid]
  rfl

/-- After the calls before its first one, a shape is barred exactly if it is turned
away. -/
theorem barred_after_iff {table : RuleTable σ ι} {before rest : List σ} (valid : table.Valid)
    (site : SiteId) (limit : Nat) (absent : shape ∉ before) :
    ((new site table limit).after before).Barred shape ↔
      table.TurnsAway limit (before ++ shape :: rest) shape := by
  have cut : ((before ++ shape :: rest).takeWhile fun other => decide (other ≠ shape)) =
      before := by
    rw [List.takeWhile_append_of_pos]
    · simp
    · intro other member
      exact decide_eq_true (fun same => absent (same ▸ member))
  have holds := holds_after valid site limit before
  have unseen : shape ∉ ((new site table limit).after before).shapes :=
    fun seen => absent (mem_of_mem_shapes_after valid site limit seen)
  unfold Barred RuleTable.TurnsAway
  rw [cut, holds.length_eq, after_table, after_limit]
  show _ ∧ (_ ∨ limit ≤ min limit _) ↔ _
  constructor
  · rintro ⟨_, unaccepted | full⟩
    · exact .inl unaccepted
    · exact .inr (by omega)
  · rintro (unaccepted | full)
    · exact ⟨unseen, .inl unaccepted⟩
    · exact ⟨unseen, .inr (by omega)⟩

/-- The first call with a shape settles all calls with it. If it is turned away every
call takes the fallback; otherwise the first call installs the rule that accepts it and
every later one finds it at the same position. -/
theorem answersTo_of_mem {table : RuleTable σ ι} (valid : table.Valid) (site : SiteId)
    (limit : Nat) (called : shape ∈ run) :
    (table.TurnsAway limit run shape ∧
      (new site table limit).answersTo run shape =
        List.replicate (run.count shape) ⟨table.fallback, .generic⟩) ∨
    (¬ table.TurnsAway limit run shape ∧ ∃ rule order, table.Accepts shape rule ∧
      (new site table limit).answersTo run shape =
        ⟨rule.implementation, .installed order⟩ ::
          List.replicate (run.count shape - 1) ⟨rule.implementation, .cached order⟩) := by
  obtain ⟨before, rest, rfl, absent⟩ := List.eq_append_cons_of_mem called
  have count : (before ++ shape :: rest).count shape = rest.count shape + 1 := by
    rw [List.count_append, List.count_eq_zero.mpr absent, List.count_cons_self, Nat.zero_add]
  rw [← barred_after_iff valid site limit absent, count, answersTo_append,
    answersTo_of_not_mem _ absent, List.nil_append]
  have table_eq : ((new site table limit).after before).table = table := after_table _ _
  have valid' : ((new site table limit).after before).table.Valid := by
    rw [table_eq]
    exact valid
  have unseen : shape ∉ ((new site table limit).after before).shapes :=
    fun seen => absent (mem_of_mem_shapes_after valid site limit seen)
  by_cases barred : ((new site table limit).after before).Barred shape
  · refine .inl ⟨barred, ?_⟩
    rw [answersTo_of_barred barred valid', table_eq, List.count_cons_self]
  · refine .inr ⟨barred, ?_⟩
    have accepted : ((new site table limit).after before).table.accepted shape = true :=
      Bool.of_not_eq_false fun unaccepted => barred ⟨unseen, .inl unaccepted⟩
    have room := Nat.lt_of_not_le fun full => barred ⟨unseen, .inr full⟩
    obtain ⟨rule, accepts⟩ := RuleTable.accepted_iff.mp accepted
    refine ⟨rule, ((new site table limit).after before).entries.length, ?_, ?_⟩
    · rw [← table_eq]
      exact accepts
    · exact answersTo_of_room unseen accepts room valid' rest

/-- Every shape of a run is answered in one of two ways. Its calls all take the fallback,
which happens exactly if the shape is turned away, or the first of them installs the rule
that accepts it and the others find it at the same position. The installing calls of the
whole run take the positions from zero on, and a position never belongs to two shapes. -/
theorem answers_by_shape {table : RuleTable σ ι} (valid : table.Valid) (site : SiteId)
    (limit : Nat) (run : List σ) :
    (∀ shape ∈ run,
      ((new site table limit).answersTo run shape =
          List.replicate (run.count shape) ⟨table.fallback, .generic⟩ ∨
        ∃ rule order, table.Accepts shape rule ∧
          (new site table limit).answersTo run shape =
            ⟨rule.implementation, .installed order⟩ ::
              List.replicate (run.count shape - 1) ⟨rule.implementation, .cached order⟩) ∧
      ((∀ answer ∈ (new site table limit).answersTo run shape, answer.route = .generic) ↔
        table.TurnsAway limit run shape)) ∧
    ((new site table limit).answers run).filterMap (fun answer => answer.route.installed?) =
      List.range (min limit (table.newcomers run).length) ∧
    (∀ first ∈ run.zip ((new site table limit).answers run),
      ∀ second ∈ run.zip ((new site table limit).answers run), ∀ order,
        first.2.route.position? = some order → second.2.route.position? = some order →
          first.1 = second.1) := by
  have numbered : (new site table limit).Numbered := rfl
  refine ⟨?_, ?_, ?_⟩
  · intro shape called
    rcases answersTo_of_mem valid site limit called with
      ⟨away, answers⟩ | ⟨stays, rule, order, accepts, answers⟩
    · refine ⟨.inl answers, fun _ => away, ?_⟩
      intro _ answer member
      rw [answers] at member
      rw [List.eq_of_mem_replicate member]
    · refine ⟨.inr ⟨rule, order, accepts, answers⟩, ?_, fun away => absurd away stays⟩
      intro generic
      have first := generic ⟨rule.implementation, .installed order⟩ (by rw [answers]; simp)
      cases first
  · have start : (new site table limit).table.Valid := valid
    have positions := range_append_installed start run
    rw [(holds_after valid site limit run).length_eq, after_limit] at positions
    exact positions
  · intro first member second member' order used used'
    have there := getElem?_shapes_of_answer numbered valid member used
    have there' := getElem?_shapes_of_answer numbered valid member' used'
    exact Option.some.inj (there.symm.trans there')

theorem answers_by_shape_slots :
    RuleTable.slots.Valid ∧ 1 ∈ [0, 3, 1, 5, 1] ∧
      ∀ answer ∈ (new ⟨0⟩ RuleTable.slots 1).answersTo [0, 3, 1, 5, 1] 1,
        answer.route = .generic := by
  have answers := answers_by_shape RuleTable.slots_valid ⟨0⟩ 1 [0, 3, 1, 5, 1]
  have away : RuleTable.slots.TurnsAway 1 [0, 3, 1, 5, 1] 1 := .inr (by decide)
  exact ⟨RuleTable.slots_valid, by decide, (answers.1 1 (by decide)).2.mpr away⟩

end InlineCache

end AdaptiveDispatch
