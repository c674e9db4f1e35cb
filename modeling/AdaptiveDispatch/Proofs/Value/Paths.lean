import AdaptiveDispatch.Value.Literal

/-!
# Typed paths follow the box

Each kind of literal answers some of the typed paths by itself and leaves the others to its
box. It makes no difference which ones: along every path a literal answers as its box would
(`Literal.along_eq`), so the literal best suited to a value cannot be told from the one that
holds the box.

Nor do the paths lose anything. No value is unboxed along all of them, and a path that cannot
unbox it hands it back as it is, the bits of a double and the identity of an object included. So
literals with different values differ along some path.
-/

namespace AdaptiveDispatch

namespace Literal

/-- What a consumer can ask for without the box. -/
inductive Path where
  | long
  | int
  | double
  | bool

namespace Path

/-- What a path answers with. -/
abbrev Primitive : Path → Type
  | long => Int64
  | int => Int32
  | double => Double
  | bool => Bool

/-- The values that have an answer along a path, with the answer. A 64-bit integer is also the
answer for a value of 32 bits, if it is the same number. -/
inductive Unboxes : (path : Path) → Value → path.Primitive → Prop where
  | long (n : Int64) : Unboxes long (.long n) n
  | widened {m : Int32} {n : Int64} (same : n.toInt = m.toInt) : Unboxes long (.int m) n
  | int (n : Int32) : Unboxes int (.int n) n
  | double (x : Double) : Unboxes double (.float x) x
  | bool (b : Bool) : Unboxes bool (.bool b) b

/-- What a path finds in a box. -/
def unbox? : (path : Path) → Value → Option path.Primitive
  | long, v => v.fixnum?
  | int, v => v.int?
  | double, v => v.float?
  | bool, .bool b => some b
  | bool, _ => none

variable {path : Path} {v : Value} {p : path.Primitive}

theorem unbox?_of_unboxes (unboxes : path.Unboxes v p) : path.unbox? v = some p := by
  cases unboxes with
  | widened same =>
      rw [← Int32.toInt_toInt64, Int64.toInt_inj] at same
      exact congrArg some same.symm
  | long n => rfl
  | int n => rfl
  | double x => rfl
  | bool b => rfl

theorem unboxes_of_unbox? (found : path.unbox? v = some p) : path.Unboxes v p := by
  -- Of all pairs of a path and a value, one is left for each rule.
  cases path <;> cases v <;> cases found
  · exact .widened (Int32.toInt_toInt64 _)
  · exact .long p
  · exact .int p
  · exact .double p
  · exact .bool p

theorem unbox?_eq_some_iff : path.unbox? v = some p ↔ path.Unboxes v p :=
  ⟨unboxes_of_unbox?, unbox?_of_unboxes⟩

theorem unbox?_eq_none_iff : path.unbox? v = none ↔ ∀ p, ¬path.Unboxes v p := by
  simp only [Option.eq_none_iff_forall_ne_some, ne_eq, unbox?_eq_some_iff]

/-- No value is unboxed along all paths: a boolean is no double, and nothing else is a
boolean. -/
theorem exists_unbox?_eq_none (v : Value) : ∃ path : Path, path.unbox? v = none := by
  cases v with
  | bool b => exact ⟨double, rfl⟩
  | _ => exact ⟨bool, rfl⟩

end Path

/-- Ask a literal along a path. -/
def along (literal : Literal) : (path : Path) → Except Value path.Primitive
  | .long => literal.asLong
  | .int => literal.asInt
  | .double => literal.asDouble
  | .bool => literal.asBool

variable {literal : Literal} {path : Path} {v w : Value} {p : path.Primitive}

/-- Every path of every literal agrees with the boxed value. -/
theorem along_eq (literal : Literal) (path : Path) :
    literal.along path =
      match path.unbox? literal.value with
      | some p => .ok p
      | none => .error literal.value := by
  cases literal with
  | boxed v => cases path <;> cases v <;> rfl
  | long n => cases path <;> rfl
  | int n => cases path <;> rfl
  | float x => cases path <;> rfl
  | bool b => cases path <;> rfl
  | nil => cases path <;> rfl

theorem along_eq_ok_iff : literal.along path = .ok p ↔ path.Unboxes literal.value p := by
  rw [along_eq, ← Path.unbox?_eq_some_iff]
  cases path.unbox? literal.value with
  | none => exact iff_of_false nofun nofun
  | some p' => rw [Except.ok.injEq, Option.some.injEq]

theorem along_eq_error_iff :
    literal.along path = .error w ↔ literal.value = w ∧ ∀ p, ¬path.Unboxes literal.value p := by
  rw [along_eq, ← Path.unbox?_eq_none_iff]
  cases path.unbox? literal.value with
  | none => rw [Except.error.injEq, and_iff_left rfl]
  | some p' => exact iff_of_false nofun fun ⟨_, absent⟩ => nomatch absent

theorem along_of_unbox?_eq_some (found : path.unbox? literal.value = some p) :
    literal.along path = .ok p :=
  along_eq_ok_iff.mpr (Path.unboxes_of_unbox? found)

theorem along_of_unbox?_eq_none (none : path.unbox? literal.value = none) :
    literal.along path = .error literal.value :=
  along_eq_error_iff.mpr ⟨rfl, Path.unbox?_eq_none_iff.mp none⟩

/-- A literal stands for a value if it evaluates to the value itself and has the answers that are
due to the value: the primitive that it unboxes to along a path, and otherwise the value itself. -/
structure StandsFor (literal : Literal) (v : Value) : Prop where
  value : literal.value = v
  unboxed : ∀ path p, literal.along path = .ok p ↔ path.Unboxes v p
  handedBack : ∀ path w, literal.along path = .error w ↔ v = w ∧ ∀ p, ¬path.Unboxes v p

/-- To evaluate to a value is enough to stand for it. -/
theorem standsFor_iff : literal.StandsFor v ↔ literal.value = v := by
  constructor
  · exact StandsFor.value
  · rintro rfl
    exact ⟨rfl, fun _ _ => along_eq_ok_iff, fun _ _ => along_eq_error_iff⟩

/-- Two literals agree along all paths if and only if they have the same value. -/
theorem along_inj {literal' : Literal} :
    literal.along = literal'.along ↔ literal.value = literal'.value := by
  constructor
  · intro agree
    -- The value of the other literal comes back along some path, and so from both literals.
    obtain ⟨path, none⟩ := Path.exists_unbox?_eq_none literal'.value
    have back : literal.along path = .error literal'.value := by
      rw [agree, along_of_unbox?_eq_none none]
    exact (along_eq_error_iff.mp back).1
  · intro same
    funext path
    rw [along_eq, along_eq, same]

/-- The literal best suited to a value and the one that holds its box both stand for the value.
They have the same answers along all typed paths, and a literal has these answers only if it
evaluates to the value. -/
theorem typed_paths_follow_box (v : Value) :
    (ofValue v).StandsFor v ∧ (boxed v).StandsFor v ∧ (ofValue v).along = (boxed v).along ∧
      ∀ literal : Literal, literal.along = (boxed v).along ↔ literal.value = v := by
  have best : (ofValue v).value = v := value_ofValue v
  refine ⟨standsFor_iff.mpr best, standsFor_iff.mpr rfl, along_inj.mpr best, ?_⟩
  intro literal
  exact along_inj

end Literal

end AdaptiveDispatch
