import OntologyGraph.Validation.Report

/-!
Reports put together. However the reports in a row are bracketed, and whether each two become a new
report or the first takes in the second, the whole has the findings of all parts in order. It is
strict if one part is, and then the undefined properties and labels of every part are violations.
-/

namespace OntologyGraph.Validation

attribute [ext] Report

namespace Report

/-- There is a finding that is a violation in any report. -/
def HasFault (r : Report) : Prop :=
  r.missing ≠ [] ∨ r.invalid ≠ [] ∨ r.brokenClasses ≠ []

/-- There is a finding that is a violation in a strict report only. -/
def HasUndefined (r : Report) : Prop :=
  r.undefined ≠ [] ∨ r.undefinedLabels ≠ []

/-- A report is a violation if it has a fault, or if it is strict and has undefined properties. -/
theorem isViolation_iff (r : Report) :
    r.isViolation = true ↔ r.HasFault ∨ (r.strict = true ∧ r.HasUndefined) := by
  simp [isViolation, HasFault, HasUndefined, or_assoc]

private theorem run_absorb (r other : Report) : (absorb other).run r = ((), r ++ other) := rfl

/-- Absorbing reports one by one comes to the same as adding them up. -/
theorem run_forM_absorb (first : Report) (rest : List Report) :
    (forM rest absorb).run first = ((), rest.foldl (· ++ ·) first) := by
  induction rest generalizing first with
  | nil => rfl
  | cons next rest ih =>
    rw [List.forM_cons, StateT.run_bind, run_absorb]
    exact ih (first ++ next)

end Report

structure Combines (parts : List Report) (whole : Report) : Prop where
  missing : whole.missing = parts.flatMap (·.missing)
  undefined : whole.undefined = parts.flatMap (·.undefined)
  invalid : whole.invalid = parts.flatMap (·.invalid)
  undefinedLabels : whole.undefinedLabels = parts.flatMap (·.undefinedLabels)
  brokenClasses : whole.brokenClasses = parts.flatMap (·.brokenClasses)
  strict : whole.strict = true ↔ ∃ part ∈ parts, part.strict = true

namespace Combines

variable {parts parts' : List Report} {whole whole' : Report}

theorem single (r : Report) : Combines [r] r := by
  constructor <;> simp

/-- A list of a report that is appended when reports are put together. -/
private theorem append_list {α : Type} (list : Report → List α)
    (hlist : list (whole ++ whole') = list whole ++ list whole')
    (h : list whole = parts.flatMap list) (h' : list whole' = parts'.flatMap list) :
    list (whole ++ whole') = (parts ++ parts').flatMap list := by
  rw [hlist, h, h', List.flatMap_append]

theorem append (h : Combines parts whole) (h' : Combines parts' whole') :
    Combines (parts ++ parts') (whole ++ whole') where
  missing := append_list (·.missing) rfl h.missing h'.missing
  undefined := append_list (·.undefined) rfl h.undefined h'.undefined
  invalid := append_list (·.invalid) rfl h.invalid h'.invalid
  undefinedLabels := append_list (·.undefinedLabels) rfl h.undefinedLabels h'.undefinedLabels
  brokenClasses := append_list (·.brokenClasses) rfl h.brokenClasses h'.brokenClasses
  strict := by
    have hstrict : (whole ++ whole').strict = (whole.strict || whole'.strict) := rfl
    rw [hstrict, Bool.or_eq_true, h.strict, h'.strict]
    simp only [List.mem_append, or_and_right, exists_or]

theorem foldl (h : Combines parts whole) (rest : List Report) :
    Combines (parts ++ rest) (rest.foldl (· ++ ·) whole) := by
  induction rest generalizing parts whole with
  | nil => simpa using h
  | cons next rest ih => simpa using ih (h.append (single next))

/-- The parts leave nothing of the whole open. -/
theorem eq_whole (h : Combines parts whole) (h' : Combines parts whole') : whole = whole' :=
  Report.ext (h.missing.trans h'.missing.symm) (h.undefined.trans h'.undefined.symm)
    (h.invalid.trans h'.invalid.symm) (h.undefinedLabels.trans h'.undefinedLabels.symm)
    (h.brokenClasses.trans h'.brokenClasses.symm)
    (Bool.eq_iff_iff.mpr (h.strict.trans h'.strict.symm))

/-- A combined report has a fault exactly if one of its parts has. -/
theorem hasFault_iff (h : Combines parts whole) :
    whole.HasFault ↔ ∃ part ∈ parts, part.HasFault := by
  simp only [Report.HasFault, h.missing, h.invalid, h.brokenClasses, ne_eq, List.flatMap_eq_nil_iff,
    Classical.not_forall, exists_prop, and_or_left, exists_or]

theorem hasUndefined_iff (h : Combines parts whole) :
    whole.HasUndefined ↔ ∃ part ∈ parts, part.HasUndefined := by
  simp only [Report.HasUndefined, h.undefined, h.undefinedLabels, ne_eq, List.flatMap_eq_nil_iff,
    Classical.not_forall, exists_prop, and_or_left, exists_or]

/-- A strict part makes violations of what other parts have undefined. -/
theorem isViolation_iff (h : Combines parts whole) :
    whole.isViolation = true ↔ (∃ part ∈ parts, part.HasFault) ∨
      ((∃ part ∈ parts, part.strict = true) ∧ ∃ part ∈ parts, part.HasUndefined) := by
  rw [Report.isViolation_iff, h.hasFault_iff, h.strict, h.hasUndefined_iff]

/-- A violation in one part is one of the whole. -/
theorem isViolation_of_part (h : Combines parts whole) {part : Report} (hmem : part ∈ parts)
    (hviolation : part.isViolation = true) : whole.isViolation = true := by
  rw [h.isViolation_iff]
  rcases part.isViolation_iff.mp hviolation with hfault | ⟨hstrict, hundefined⟩
  · exact .inl ⟨part, hmem, hfault⟩
  · exact .inr ⟨⟨part, hmem, hstrict⟩, part, hmem, hundefined⟩

end Combines

/-- A way to put reports together. Two become a new one, or the first takes in the second. -/
inductive Bracketing where
  | report (r : Report)
  | join (a b : Bracketing)
  | takeIn (a b : Bracketing)

namespace Bracketing

def parts : Bracketing → List Report
  | report r => [r]
  | join a b | takeIn a b => a.parts ++ b.parts

def whole : Bracketing → Report
  | report r => r
  | join a b => a.whole ++ b.whole
  | takeIn a b => ((Report.absorb b.whole).run a.whole).2

/-- However the brackets are set, the whole combines its parts in order. -/
theorem combines (b : Bracketing) : Combines b.parts b.whole := by
  induction b with
  | report r => exact .single r
  | join a b iha ihb => exact iha.append ihb
  | takeIn a b iha ihb =>
    rw [whole, Report.run_absorb]
    exact iha.append ihb

end Bracketing

/-- Reports in a row come to one whole, whatever the brackets are. It has the findings of each part,
in order, and is strict exactly if one part is. What is a violation in a part is one in the whole;
what a part leaves undefined is one as soon as there is a strict part. -/
theorem combined_whatever_brackets (first : Report) (rest : List Report) :
    ∃ whole, Combines (first :: rest) whole ∧
      (∀ b : Bracketing, b.parts = first :: rest → b.whole = whole) ∧
      rest.foldl (· ++ ·) first = whole ∧ (forM rest Report.absorb).run first = ((), whole) ∧
      (whole.isViolation = true ↔ (∃ part ∈ first :: rest, part.HasFault) ∨
        ((∃ part ∈ first :: rest, part.strict = true) ∧
          ∃ part ∈ first :: rest, part.HasUndefined)) ∧
      ∀ part ∈ first :: rest, part.isViolation = true → whole.isViolation = true := by
  have hwhole : Combines (first :: rest) (rest.foldl (· ++ ·) first) :=
    (Combines.single first).foldl rest
  refine ⟨_, hwhole, ?_, rfl, Report.run_forM_absorb first rest, hwhole.isViolation_iff, ?_⟩
  · intro b hparts
    exact (hparts ▸ b.combines).eq_whole hwhole
  · intro part hmem
    exact hwhole.isViolation_of_part hmem

end OntologyGraph.Validation
