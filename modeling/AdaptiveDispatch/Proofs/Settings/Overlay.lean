import AdaptiveDispatch.Settings
import Mathlib.Data.List.DropRight
import Mathlib.Data.List.TakeWhile

/-!
# Limits from variables

The text of a variable sets a limit if it is a `LimitText`: blanks, a plus sign or none, a
numeral, and blanks. A numeral may have any number of leading zeros, but what it denotes must
fit into 64 bits. Reading a text accepts these texts and no others (`readLimit?_eq_some_iff`).

A variable with any other text counts as if it were not set, and then the limit stays as it is.
-/

namespace AdaptiveDispatch

namespace Text

/-- What `trim` removes is blank. -/
theorem exists_blanks (text : List Char) :
    ∃ before after, text = before ++ trim text ++ after ∧
      (∀ c ∈ before, isBlank c) ∧ ∀ c ∈ after, isBlank c := by
  refine ⟨text.takeWhile isBlank, (text.dropWhile isBlank).rtakeWhile isBlank, ?_,
    fun _ => List.mem_takeWhile_imp, fun _ => List.mem_rtakeWhile_imp⟩
  have trimmed : trim text = (text.dropWhile isBlank).rdropWhile isBlank := rfl
  rw [trimmed, List.append_assoc, List.rdropWhile_append_rtakeWhile,
    List.takeWhile_append_dropWhile]

theorem dropWhile_of_filled {inner : List Char} (filled : ∀ c ∈ inner, isBlank c = false)
    (rest : List Char) (blank : ∀ c ∈ rest, isBlank c) :
    (inner ++ rest).dropWhile isBlank = if inner = [] then [] else inner ++ rest := by
  cases inner with
  | nil => exact List.dropWhile_eq_nil_iff.mpr blank
  | cons c inner =>
      rw [List.cons_append, List.dropWhile_cons_of_neg]
      · rfl
      · rw [filled c List.mem_cons_self]
        exact Bool.false_ne_true

/-- Blanks around a text without any are all removed. -/
theorem trim_of_blanks {before inner after : List Char} (front : ∀ c ∈ before, isBlank c)
    (filled : ∀ c ∈ inner, isBlank c = false) (back : ∀ c ∈ after, isBlank c) :
    trim (before ++ inner ++ after) = inner := by
  have filled' : ∀ c ∈ inner.reverse, isBlank c = false :=
    fun c mem => filled c (List.mem_reverse.mp mem)
  have back' : ∀ c ∈ after.reverse, isBlank c := fun c mem => back c (List.mem_reverse.mp mem)
  rw [trim, List.append_assoc, List.dropWhile_append_of_pos front,
    dropWhile_of_filled filled after back]
  by_cases empty : inner = []
  · rw [if_pos empty, empty]
    rfl
  · rw [if_neg empty, List.reverse_append, List.dropWhile_append_of_pos back']
    have kept := dropWhile_of_filled filled' [] (fun _ none => absurd none List.not_mem_nil)
    rw [List.append_nil, if_neg (by simpa using empty)] at kept
    rw [kept, List.reverse_reverse]

end Text

/-- Decimal digits, with the number that they denote. -/
inductive Numeral : List Char → Nat → Prop where
  | digit {d : Nat} (lt : d < 10) : Numeral [Nat.digitChar d] d
  | snoc {digits : List Char} {n d : Nat} (more : Numeral digits n) (lt : d < 10) :
      Numeral (digits ++ [Nat.digitChar d]) (10 * n + d)

/-- The text of a limit, with the limit. -/
inductive LimitText : List Char → Nat → Prop where
  | written {before sign digits after : List Char} {n : Nat}
      (front : ∀ c ∈ before, Text.isBlank c) (optional : sign = [] ∨ sign = ['+'])
      (numeral : Numeral digits n) (back : ∀ c ∈ after, Text.isBlank c)
      (fits : n < UInt64.size) : LimitText (before ++ (sign ++ digits) ++ after) n

namespace Numeral

variable {digits : List Char} {c : Char} {n : Nat}

theorem exists_digitChar (digit : c.isDigit) : ∃ d < 10, Nat.digitChar d = c := by
  obtain ⟨low, high⟩ := Char.isDigit_iff_toNat.mp digit
  change 48 ≤ c.toNat at low
  change c.toNat ≤ 57 at high
  refine ⟨c.toNat - 48, by omega, Char.toNat_inj.mp ?_⟩
  rw [Nat.toNat_digitChar_of_lt_ten (by omega)]
  omega

theorem ofDigitChars_snoc (digits : List Char) {d : Nat} (lt : d < 10) :
    Nat.ofDigitChars 10 (digits ++ [Nat.digitChar d]) 0 =
      10 * Nat.ofDigitChars 10 digits 0 + d := by
  have value : (Nat.digitChar d).toNat - '0'.toNat = d := by
    rw [Nat.toNat_digitChar_of_lt_ten lt]
    exact Nat.add_sub_cancel_left 48 d
  rw [Nat.ofDigitChars_append, Nat.ofDigitChars_cons, Nat.ofDigitChars_nil, value]

/-- A numeral is not empty, has nothing but digits, and denotes what they add up to. -/
theorem iff_ofDigitChars :
    Numeral digits n ↔
      digits ≠ [] ∧ (∀ c ∈ digits, c.isDigit) ∧ Nat.ofDigitChars 10 digits 0 = n := by
  constructor
  · intro numeral
    induction numeral with
    | digit lt =>
        refine ⟨List.cons_ne_nil _ _, ?_, ?_⟩
        · simp [Nat.isDigit_digitChar, lt]
        · exact (ofDigitChars_snoc [] lt).trans (Nat.zero_add _)
    | snoc more lt ih =>
        obtain ⟨nonempty, all, value⟩ := ih
        refine ⟨by simp, ?_, ?_⟩
        · intro c mem
          rcases List.mem_append.mp mem with mem | mem
          · exact all c mem
          · rw [List.mem_singleton.mp mem, Nat.isDigit_digitChar]
            exact decide_eq_true lt
        · rw [ofDigitChars_snoc _ lt, value]
  · rintro ⟨nonempty, all, rfl⟩
    induction digits using List.reverseRecOn with
    | nil => exact absurd rfl nonempty
    | append_singleton digits c ih =>
        obtain ⟨d, lt, rfl⟩ := exists_digitChar (all c (by simp))
        rw [ofDigitChars_snoc _ lt]
        cases digits with
        | nil =>
            rw [Nat.ofDigitChars_nil, Nat.mul_zero, Nat.zero_add]
            exact .digit lt
        | cons c' digits =>
            have fewer := fun c mem => all c (List.mem_append_left _ mem)
            exact .snoc (ih (List.cons_ne_nil _ _) fewer) lt

theorem not_isBlank (numeral : Numeral digits n) (mem : c ∈ digits) :
    Text.isBlank c = false := by
  obtain ⟨d, lt, rfl⟩ := exists_digitChar ((iff_ofDigitChars.mp numeral).2.1 c mem)
  have none_blank : ∀ d < 10, Text.isBlank (Nat.digitChar d) = false := by decide
  exact none_blank d lt

theorem head?_ne (numeral : Numeral digits n) : digits.head? ≠ some '+' := by
  intro sign
  have digit := (iff_ofDigitChars.mp numeral).2.1 '+' (List.mem_of_mem_head? sign)
  cases digit

end Numeral

namespace Settings

variable {text : String} {digits : List Char} {m n : Nat}

theorem readDigits?_eq_some_iff :
    readDigits? digits = some n ↔ Numeral digits n ∧ n < UInt64.size := by
  have wellFormed : (!digits.isEmpty && digits.all (·.isDigit)) = true ↔
      digits ≠ [] ∧ ∀ c ∈ digits, c.isDigit := by
    simp
  have fits (number : Nat) : number ≤ greatestNumber ↔ number < UInt64.size :=
    Nat.le_sub_one_iff_lt (by decide)
  rw [readDigits?, Numeral.iff_ofDigitChars, ← and_assoc, ← wellFormed]
  by_cases accepted : (!digits.isEmpty && digits.all (·.isDigit)) = true
  · simp only [accepted, if_true, true_and, fits, Option.ite_none_right_eq_some, Option.some_inj]
    constructor
    · rintro ⟨lt, rfl⟩
      exact ⟨rfl, lt⟩
    · rintro ⟨rfl, lt⟩
      exact ⟨lt, rfl⟩
  · rw [if_neg accepted]
    exact iff_of_false nofun fun ⟨⟨yes, _⟩, _⟩ => accepted yes

theorem readLimit?_of_signed (signed : Text.trim text.toList = '+' :: digits) :
    readLimit? text = readDigits? digits := by
  rw [readLimit?, signed]
  rfl

theorem readLimit?_of_unsigned (unsigned : (Text.trim text.toList).head? ≠ some '+') :
    readLimit? text = readDigits? (Text.trim text.toList) := by
  rw [readLimit?]
  split
  · rename_i digits signed
    rw [signed] at unsigned
    exact absurd rfl unsigned
  · rfl

/-- Reading accepts the texts of limits and no others. -/
theorem readLimit?_eq_some_iff : readLimit? text = some n ↔ LimitText text.toList n := by
  constructor
  · intro read
    obtain ⟨before, after, same, front, back⟩ := Text.exists_blanks text.toList
    rw [same]
    by_cases signed : (Text.trim text.toList).head? = some '+'
    · obtain ⟨digits, signed⟩ := List.head?_eq_some_iff.mp signed
      rw [readLimit?_of_signed signed] at read
      obtain ⟨numeral, fits⟩ := readDigits?_eq_some_iff.mp read
      have optional : ['+'] = [] ∨ ['+'] = ['+'] := .inr rfl
      rw [signed]
      exact .written front optional numeral back fits
    · rw [readLimit?_of_unsigned signed] at read
      obtain ⟨numeral, fits⟩ := readDigits?_eq_some_iff.mp read
      have optional : ([] : List Char) = [] ∨ [] = ['+'] := .inl rfl
      rw [← List.nil_append (Text.trim text.toList)]
      exact .written front optional numeral back fits
  · intro written
    -- The characters are those of a string, which cannot be taken apart in place.
    generalize same : text.toList = chars at written
    obtain @⟨before, sign, digits, after, _, front, optional, numeral, back, fits⟩ := written
    have read := readDigits?_eq_some_iff.mpr ⟨numeral, fits⟩
    have trimmed : Text.trim text.toList = sign ++ digits := by
      rw [same]
      refine Text.trim_of_blanks front ?_ back
      intro c mem
      rcases List.mem_append.mp mem with mem | mem
      · rcases optional with rfl | rfl
        · cases mem
        · rw [List.mem_singleton.mp mem]
          rfl
      · exact numeral.not_isBlank mem
    rcases optional with rfl | rfl
    · rw [List.nil_append] at trimmed
      rw [readLimit?_of_unsigned (by rw [trimmed]; exact numeral.head?_ne), trimmed]
      exact read
    · rw [readLimit?_of_signed trimmed]
      exact read

/-- What becomes of a limit that a variable can set. -/
inductive Overlaid (found : Option String) (old : Nat) : Nat → Prop where
  | set {text : String} {n : Nat} (there : found = some text)
      (written : LimitText text.toList n) : Overlaid found old n
  | kept (unset : ∀ text n, found = some text → ¬LimitText text.toList n) :
      Overlaid found old old

theorem overlaid_iff {found : Option String} {old new : Nat} :
    Overlaid found old new ↔ (found.bind readLimit?).getD old = new := by
  constructor
  · intro overlaid
    cases overlaid with
    | set there written =>
        rw [there, Option.bind_some, readLimit?_eq_some_iff.mpr written, Option.getD_some]
    | kept unset =>
        have none : found.bind readLimit? = none := by
          rw [Option.bind_eq_none_iff]
          intro text there
          rw [Option.eq_none_iff_forall_ne_some]
          intro n read
          exact unset text n there (readLimit?_eq_some_iff.mp read)
        rw [none, Option.getD_none]
  · rintro rfl
    cases read : found.bind readLimit? with
    | none =>
        refine .kept fun text n there written => ?_
        rw [there, Option.bind_some, readLimit?_eq_some_iff.mpr written] at read
        cases read
    | some n =>
        obtain ⟨text, there, read⟩ := Option.bind_eq_some_iff.mp read
        exact .set there (readLimit?_eq_some_iff.mp read)

/-- Variables overlay the limits exactly as the grammar says. Each limit is set by the text of its
own variable and by no other one, and stays as it is unless that is the text of a limit. The
method for conversions is not touched. To overlay the same variables again changes nothing. -/
theorem overlay_follows_grammar (settings : Settings) (lookup : String → Option String) :
    (∀ overlaid : Settings, settings.overlay lookup = overlaid ↔
      Overlaid (lookup coercionVariable) settings.coercionLimit overlaid.coercionLimit ∧
        Overlaid (lookup sequenceVariable) settings.sequenceLimit overlaid.sequenceLimit ∧
        settings.conversionMethod = overlaid.conversionMethod) ∧
      (∀ lookup' : String → Option String,
        (lookup' coercionVariable = lookup coercionVariable →
          (settings.overlay lookup').coercionLimit = (settings.overlay lookup).coercionLimit) ∧
        (lookup' sequenceVariable = lookup sequenceVariable →
          (settings.overlay lookup').sequenceLimit = (settings.overlay lookup).sequenceLimit)) ∧
      (settings.overlay lookup).overlay lookup = settings.overlay lookup := by
  refine ⟨fun overlaid => ?_, fun lookup' => ⟨fun same => ?_, fun same => ?_⟩, ?_⟩
  · obtain ⟨coercionLimit, sequenceLimit, conversionMethod⟩ := overlaid
    simp only [overlay, overlaid_iff, Settings.mk.injEq]
  · simp only [overlay, same]
  · simp only [overlay, same]
  · have twice (limit : Option Nat) (old : Nat) : limit.getD (limit.getD old) = limit.getD old := by
      cases limit with
      | none => rfl
      | some n => rfl
    simp only [overlay, twice]

/-- One limit is written with a sign and leading zeros between blanks, and the other one is just
too large for 64 bits. -/
theorem overlay_follows_grammar_seven :
    let lookup (name : String) : Option String :=
      if name = coercionVariable then some " +007\n" else some "18446744073709551616"
    let quiet (name : String) : Option String :=
      if name = coercionVariable then some " +007\n" else none
    let settings : Settings := {}
    let overlaid : Settings := { settings with coercionLimit := 7 }
    LimitText " +007\n".toList 7 ∧ settings.overlay lookup = overlaid ∧
      (settings.overlay quiet).coercionLimit = (settings.overlay lookup).coercionLimit := by
  intro lookup quiet settings overlaid
  have written : LimitText " +007\n".toList 7 := readLimit?_eq_some_iff.mp (by decide)
  have first : lookup coercionVariable = some " +007\n" := by decide
  have second : lookup sequenceVariable = some "18446744073709551616" := by decide
  have unset : ∀ text n, lookup sequenceVariable = some text → ¬LimitText text.toList n := by
    intro text n there written
    rw [second] at there
    cases there
    have none : readLimit? "18446744073709551616" = none := by decide
    rw [readLimit?_eq_some_iff.mpr written] at none
    cases none
  obtain ⟨exactly, alone, _⟩ := overlay_follows_grammar settings lookup
  refine ⟨written, (exactly overlaid).mpr ⟨.set first written, .kept unset, rfl⟩, ?_⟩
  have same : quiet coercionVariable = lookup coercionVariable := by decide
  exact (alone quiet).1 same

end Settings

end AdaptiveDispatch
