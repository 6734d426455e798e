import ComponentAssembly.Instance

/-!
# What is reported

Each diagnostic that is reported leaves a record in the log, and the log tells it from all other
records (`LogRecord.diagnostic?_eq_some_iff`).  So the findings of a journal are told by its log,
whether diagnostics are collected or not.  A journal `k` *tells* diagnostics `ds` after `j` if they
are what was reported from `j` on:

    j.Tells k ds → k.findings = j.findings ++ ds ∧ …                             (Journal.Tells)

Most steps report warnings at most (`Journal.Warns`).
-/

namespace ComponentAssembly

/-- The kinds of findings. -/
def DiagnosticKind.all : List DiagnosticKind :=
  [.validationFailure, .unmatchedConfiguration, .skippedElement, .conversionFailure]

/-- The diagnostic that a record is about. -/
def LogRecord.diagnostic? (r : LogRecord) : Option Diagnostic :=
  r.fields.head?.bind fun (_, path) =>
    (DiagnosticKind.all.map fun kind => { kind, path, message := r.message }).find? (·.record = r)

/-- The record of a diagnostic tells which one it is. -/
theorem LogRecord.diagnostic?_eq_some_iff {r : LogRecord} {d : Diagnostic} :
    r.diagnostic? = some d ↔ d.record = r := by
  constructor
  · intro h
    obtain ⟨field, -, hfound⟩ := Option.bind_eq_some_iff.mp h
    simpa using List.find?_some hfound
  · rintro rfl
    obtain ⟨kind, path, message⟩ := d
    cases kind <;> simp [diagnostic?, Diagnostic.record, DiagnosticKind.all, DiagnosticKind.label]

@[simp]
theorem Diagnostic.diagnostic?_record (d : Diagnostic) : d.record.diagnostic? = some d :=
  LogRecord.diagnostic?_eq_some_iff.mpr rfl

/-- Other records are about no diagnostic: those below warnings, and warnings of other fields. -/
theorem LogRecord.diagnostic?_eq_none {r : LogRecord} (herror : r.level ≠ .error)
    (hwarn : r.level = .warn → r.fields.length ≠ 2) : r.diagnostic? = none := by
  cases hsome : r.diagnostic? with
  | none => rfl
  | some d =>
    rw [LogRecord.diagnostic?_eq_some_iff] at hsome
    subst hsome
    obtain ⟨kind, path, message⟩ := d
    cases kind with
    | validationFailure => exact absurd rfl herror
    | unmatchedConfiguration => exact absurd rfl (hwarn rfl)
    | skippedElement => exact absurd rfl (hwarn rfl)
    | conversionFailure => exact absurd rfl (hwarn rfl)

theorem LogRecord.diagnostic?_debug (message : String) (fields : List (String × String)) :
    ({ level := .debug, message, fields } : LogRecord).diagnostic? = none :=
  diagnostic?_eq_none (by simp) (by simp)

namespace Journal

/-- The diagnostics that were reported. -/
def findings (j : Journal) : List Diagnostic := j.log.filterMap LogRecord.diagnostic?

/-- What was reported from a journal to a later one; it was collected if diagnostics are. -/
structure Tells (j k : Journal) (ds : List Diagnostic) : Prop where
  findings : k.findings = j.findings ++ ds
  collecting : k.collecting = j.collecting
  diagnostics : k.diagnostics = j.diagnostics ++ if j.collecting then ds else []

variable {j k l : Journal} {ds es : List Diagnostic}

theorem Tells.refl (j : Journal) : j.Tells j [] where
  findings := by simp
  collecting := rfl
  diagnostics := by simp

theorem Tells.trans (h : j.Tells k ds) (h' : k.Tells l es) : j.Tells l (ds ++ es) where
  findings := by rw [h'.findings, h.findings, List.append_assoc]
  collecting := h'.collecting.trans h.collecting
  diagnostics := by
    rw [h'.diagnostics, h.diagnostics, h.collecting]
    split <;> simp

/-- A record that is about no diagnostic tells nothing. -/
theorem tells_write (j : Journal) {record : LogRecord} (h : record.diagnostic? = none) :
    j.Tells (Journal.write record j).2 [] where
  findings := by
    show (j.log ++ [record]).filterMap LogRecord.diagnostic? = _
    simp [h, Journal.findings]
  collecting := rfl
  diagnostics := by
    show j.diagnostics = _
    simp

theorem tells_report (j : Journal) (kind : DiagnosticKind) (path message : String) :
    j.Tells (Journal.report kind path message j).2 [{ kind, path, message }] := by
  have hfindings : (j.log ++ [Diagnostic.record { kind, path, message }]).filterMap
      LogRecord.diagnostic? = j.findings ++ [Diagnostic.mk kind path message] := by
    simp [Journal.findings]
  have hrun : (Journal.report kind path message j).2 =
      if j.collecting then
        { j with log := j.log ++ [Diagnostic.record { kind, path, message }],
                 diagnostics := j.diagnostics ++ [{ kind, path, message }] }
      else { j with log := j.log ++ [Diagnostic.record { kind, path, message }] } := rfl
  rw [hrun]
  split
  · next hcollecting => exact ⟨hfindings, rfl, by simp [hcollecting]⟩
  · next hcollecting => exact ⟨hfindings, rfl, by simp [hcollecting]⟩

/-- A report notes no event and names no component. -/
theorem report_apart (j : Journal) (kind : DiagnosticKind) (path message : String) :
    (Journal.report kind path message j).2.events = j.events ∧
      (Journal.report kind path message j).2.serials = j.serials := by
  constructor
  · show (if j.collecting then _ else _ : Journal).events = _
    split <;> rfl
  · show (if j.collecting then _ else _ : Journal).serials = _
    split <;> rfl

/-- What was reported from a journal to a later one are warnings: no failed validation is among
them. -/
def Warns (j k : Journal) : Prop :=
  ∃ ds, j.Tells k ds ∧ ∀ d ∈ ds, d.kind ≠ .validationFailure

theorem Warns.refl (j : Journal) : j.Warns j :=
  ⟨[], .refl j, fun _ hd => by cases hd⟩

theorem Warns.trans (h : j.Warns k) (h' : k.Warns l) : j.Warns l := by
  obtain ⟨ds, htells, hds⟩ := h
  obtain ⟨es, htells', hes⟩ := h'
  refine ⟨ds ++ es, htells.trans htells', fun d hd => ?_⟩
  rcases List.mem_append.mp hd with hd | hd
  · exact hds d hd
  · exact hes d hd

theorem warns_report (j : Journal) {kind : DiagnosticKind} (h : kind ≠ .validationFailure)
    (path message : String) : j.Warns (Journal.report kind path message j).2 := by
  refine ⟨_, j.tells_report kind path message, fun d hd => ?_⟩
  rw [List.mem_singleton.mp hd]
  exact h

/-- The log and the diagnostics are all that telling looks at. -/
theorem Tells.of_same (h : j.Tells k ds) (hlog : l.log = k.log)
    (hcollecting : l.collecting = k.collecting) (hdiagnostics : l.diagnostics = k.diagnostics) :
    j.Tells l ds where
  findings := by
    rw [← h.findings, Journal.findings, hlog]
    rfl
  collecting := hcollecting.trans h.collecting
  diagnostics := hdiagnostics.trans h.diagnostics

end Journal

/-! ## What steps on the journal report -/

/-- Whatever the journal, the result of a step and what it reports are so. -/
def Telling {α : Type} (P : α → List Diagnostic → Prop) (step : StateM Journal α) : Prop :=
  ∀ j, ∃ told, j.Tells (step j).2 told ∧ P (step j).1 told

namespace Telling

variable {α β : Type} {P P' : α → List Diagnostic → Prop} {Q : β → List Diagnostic → Prop}
  {step : StateM Journal α}

theorem pure {a : α} (h : P a []) : Telling P (Pure.pure a) :=
  fun j => ⟨[], .refl j, h⟩

theorem mono (h : Telling P step) (himp : ∀ a told, P a told → P' a told) : Telling P' step := by
  intro j
  obtain ⟨told, htells, hresult⟩ := h j
  exact ⟨told, htells, himp _ _ hresult⟩

theorem bind {f : α → StateM Journal β} (h : Telling P step)
    (hf : ∀ a told, P a told → Telling (fun b told' => Q b (told ++ told')) (f a)) :
    Telling Q (step >>= f) := by
  intro j
  obtain ⟨told, htells, hresult⟩ := h j
  obtain ⟨told', htells', hresult'⟩ := hf _ _ hresult (step j).2
  exact ⟨told ++ told', htells.trans htells', hresult'⟩

theorem report (kind : DiagnosticKind) (path message : String) :
    Telling (fun _ told => told = [Diagnostic.mk kind path message])
      (Journal.report kind path message) :=
  fun j => ⟨_, j.tells_report kind path message, rfl⟩

theorem debug (message : String) (fields : List (String × String)) :
    Telling (fun _ told => told = []) (Journal.debug message fields) :=
  fun j => ⟨[], j.tells_write (LogRecord.diagnostic?_debug message fields), rfl⟩

theorem allocate (value : Value) :
    Telling (fun i told => i.value = value ∧ told = []) (Journal.allocate value) :=
  fun j => ⟨[], (Journal.Tells.refl j).of_same rfl rfl rfl, rfl, rfl⟩

end Telling

end ComponentAssembly
