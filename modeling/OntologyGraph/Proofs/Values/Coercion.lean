import OntologyGraph.Datatypes
import OntologyGraph.Proofs.Decimal.Integers
import OntologyGraph.Proofs.Maps.Entries
import OntologyGraph.Proofs.Script.Characters
import OntologyGraph.Proofs.Time.Timestamp

/-!
Values that have become texts. Where only text can be written a value becomes its text, and the text
is of each kind that the value was of. Only instants in years that need a sign are no longer what
they were. Floats are left out: their digits are not looked at here.
-/

namespace OntologyGraph

namespace Text

private theorem stripBoth_eq_self {p : Char → Bool} {cs : List Char} (h : ∀ c ∈ cs, p c = false) :
    stripBoth p cs = cs := by
  have hdrop {cs : List Char} (h : ∀ c ∈ cs, p c = false) : cs.dropWhile p = cs := by
    cases cs with
    | nil => rfl
    | cons c cs => rw [List.dropWhile_cons, h c List.mem_cons_self, if_neg Bool.false_ne_true]
  have hreverse : ∀ c ∈ cs.reverse, p c = false := fun c hmem => h c (List.mem_reverse.mp hmem)
  rw [stripBoth, hdrop h, hdrop hreverse, List.reverse_reverse]

end Text

namespace Decimal

private theorem stripBoth_integerText (n : Int) :
    Text.stripBoth Text.isBlank (integerText n) = integerText n := by
  apply Text.stripBoth_eq_self
  intro c hmem
  rw [Bool.eq_false_iff]
  intro hblank
  have hbounds := Script.blank_bounds hblank
  rcases mem_integerText hmem with rfl | hdigit
  · cases hblank
  · have hdigits : 48 ≤ c.toNat ∧ c.toNat ≤ 57 := Char.isDigit_iff_toNat.mp hdigit
    omega

end Decimal

namespace Value

def IsFloat : Value → Prop
  | .float _ => True
  | _ => False

/-- An instant whose year is written with a sign, for it lies before the year zero or has more than
four digits. -/
def HasSignedYear : Value → Prop
  | .instant t => t.date.year < 0 ∨ 9999 < t.date.year
  | _ => False

def coerced (v : Value) : Value :=
  .text v.toText

/-- The years with a sign lie outside the seconds from the first of the year zero to the last of the
year 9999. -/
theorem hasSignedYear_iff (v : Value) :
    v.HasSignedYear ↔
      ∃ t, v = .instant t ∧ (t.seconds < -62167219200 ∨ 253402300800 ≤ t.seconds) := by
  cases v with
  | instant t =>
    have hyear := Time.year_date_iff t
    simp only [HasSignedYear, Value.instant.injEq, exists_eq_left']
    omega
  | _ => simp [HasSignedYear]

end Value

namespace Datatypes

/-- A check that no instant passes, and that a value passes as a text if it does itself. -/
structure Survives (check : Value → Bool) : Prop where
  instants : ∀ t, check (.instant t) = false
  coerced : ∀ v, ¬ v.IsFloat → check v = true → check v.coerced = true

theorem isText_survives : Survives isText where
  instants _ := rfl
  coerced _ _ _ := rfl

theorem isInteger_survives : Survives isInteger where
  instants _ := rfl
  coerced v _ h := by
    cases v with
    | text s => exact h
    | int n =>
      simp only [Value.coerced, isInteger, Value.toText, String.toList_ofList,
        Decimal.stripBoth_integerText, Decimal.int64?_integerText, Option.isSome_some]
    | _ => cases h

theorem isFloat_survives : Survives isFloat where
  instants _ := rfl
  coerced v hfloat h := by
    cases v with
    | text s => exact h
    | int n =>
      simp only [Value.coerced, isFloat, Value.toText, String.toList_ofList,
        Decimal.stripBoth_integerText, Decimal.float?_integerText, Option.isSome_some]
    | float x => exact absurd trivial hfloat
    | _ => cases h

theorem isBoolean_survives : Survives isBoolean where
  instants _ := rfl
  coerced v _ h := by
    cases v with
    | text s => exact h
    | bool b => cases b <;> rfl
    | _ => cases h

theorem isUrl_survives : Survives isUrl where
  instants _ := rfl
  coerced v _ h := by
    cases v with
    | text s => exact h
    | _ => cases h

/-- A time written as a text passes as a time again unless its year has a sign. -/
theorem isDateTime_coerced {v : Value} (h : isDateTime v = true) :
    isDateTime v.coerced = true ↔ ¬ v.HasSignedYear := by
  cases v with
  | text s => exact iff_of_true h id
  | instant t =>
    have hchars : (Value.instant t).toText.toList = t.chars := String.toList_ofList
    rw [Value.coerced, isDateTime, hchars, Time.isTimestamp_chars_iff, Value.HasSignedYear]
    omega
  | _ => cases h

theorem check_standard_eq_ok_iff (kind property : String) (v : Value) (verdict : Bool) :
    standard.check kind property v = .ok verdict ↔
      ∃ check, (kind, check) ∈ standard.checks.entries ∧ check v = verdict := by
  have hunique : standard.checks.Unique := TextMap.unique_ofList _
  simp only [TextMap.mem_entries_iff hunique, check]
  cases standard.checks.get? kind with
  | none => simp
  | some check => simp

/-- All standard checks but that of times hold of the text of what they hold of. -/
theorem survives_or_isDateTime {kind : String} {check : Value → Bool}
    (h : (kind, check) ∈ standard.checks.entries) :
    Survives check ∨ (kind = "DateTime" ∧ check = isDateTime) := by
  have hentries : standard.checks.entries = [("DateTime", isDateTime), ("String", isText),
      ("Integer", isInteger), ("Float", isFloat), ("Boolean", isBoolean), ("Url", isUrl)] := rfl
  simp only [hentries, List.mem_cons, List.not_mem_nil, or_false, Prod.mk.injEq] at h
  rcases h with h | ⟨-, rfl⟩ | ⟨-, rfl⟩ | ⟨-, rfl⟩ | ⟨-, rfl⟩ | ⟨-, rfl⟩
  · exact .inr h
  · exact .inl isText_survives
  · exact .inl isInteger_survives
  · exact .inl isFloat_survives
  · exact .inl isBoolean_survives
  · exact .inl isUrl_survives

theorem Survives.not_signedYear {check : Value → Bool} (h : Survives check) {v : Value}
    (hcheck : check v = true) : ¬ v.HasSignedYear := by
  cases v with
  | instant t =>
    rw [h.instants t] at hcheck
    cases hcheck
  | _ => exact id

/-- A value that is of a kind is of this kind as a text too, unless it is an instant whose year is
written with a sign. Those are the instants before the first second of the year zero and behind the
last of the year 9999, and their texts are no timestamps. -/
theorem coerced_of_kind {kind property : String} {v : Value} (hfloat : ¬ v.IsFloat)
    (hcheck : standard.check kind property v = .ok true) (property' : String) :
    (standard.check kind property' v.coerced = .ok true ↔ ¬ v.HasSignedYear) ∧
      (v.HasSignedYear →
        kind = "DateTime" ∧ standard.check kind property' v.coerced = .ok false) ∧
      (v.HasSignedYear ↔
        ∃ t, v = .instant t ∧ (t.seconds < -62167219200 ∨ 253402300800 ≤ t.seconds)) := by
  obtain ⟨check, hmem, hholds⟩ := (check_standard_eq_ok_iff kind property v true).mp hcheck
  have hcoerced (verdict : Bool) (h : check v.coerced = verdict) :
      standard.check kind property' v.coerced = .ok verdict :=
    (check_standard_eq_ok_iff kind property' v.coerced verdict).mpr ⟨check, hmem, h⟩
  rcases survives_or_isDateTime hmem with hsurvives | ⟨rfl, rfl⟩
  · have hunsigned : ¬ v.HasSignedYear := hsurvives.not_signedYear hholds
    have haccepted := hcoerced true (hsurvives.coerced v hfloat hholds)
    exact ⟨iff_of_true haccepted hunsigned, fun h => absurd h hunsigned, v.hasSignedYear_iff⟩
  · have hverdict := hcoerced (isDateTime v.coerced) rfl
    have hsigned : v.HasSignedYear → isDateTime v.coerced = false := by
      intro hsigned
      rw [Bool.eq_false_iff]
      exact fun htrue => (isDateTime_coerced hholds).mp htrue hsigned
    refine ⟨?_, fun h => ⟨rfl, hcoerced false (hsigned h)⟩, v.hasSignedYear_iff⟩
    rw [hverdict, Except.ok.injEq]
    exact isDateTime_coerced hholds

/-- The leap second at the end of the year 9999 is the last instant that is a timestamp as a
text. -/
theorem coerced_of_kind_lastYear :
    let last : Value := .instant ⟨253402300799, 1999999999, by decide⟩
    let beyond : Value := .instant ⟨253402300800, 0, by decide⟩
    let least : Value := .int Int64.minValue
    (¬ last.IsFloat ∧ standard.check "DateTime" "created" last = .ok true ∧
        standard.check "DateTime" "created" last.coerced = .ok true) ∧
      (¬ beyond.IsFloat ∧ standard.check "DateTime" "created" beyond = .ok true ∧
        standard.check "DateTime" "created" beyond.coerced = .ok false) ∧
      ¬ least.IsFloat ∧ standard.check "Float" "depth" least = .ok true ∧
        standard.check "Float" "depth" least.coerced = .ok true := by
  intro last beyond least
  have hlast : ¬ last.HasSignedYear := by
    change ¬ ((9999 : Int) < 0 ∨ (9999 : Int) < 9999)
    decide
  have hbeyond : beyond.HasSignedYear := .inr (by decide)
  obtain ⟨hkept, -, -⟩ := coerced_of_kind (v := last) id (show
    standard.check "DateTime" "created" last = .ok true from rfl) "created"
  obtain ⟨-, hlost, -⟩ := coerced_of_kind (v := beyond) id (show
    standard.check "DateTime" "created" beyond = .ok true from rfl) "created"
  obtain ⟨hleast, -, -⟩ := coerced_of_kind (v := least) id (show
    standard.check "Float" "depth" least = .ok true from rfl) "depth"
  exact ⟨⟨id, rfl, hkept.mpr hlast⟩, ⟨id, rfl, (hlost hbeyond).2⟩, id, rfl, hleast.mpr id⟩

end Datatypes

end OntologyGraph
