import ComponentAssembly.Proofs.Agreement
import ComponentAssembly.Proofs.Visits

/-!
# How raw texts are read

A point that asks for a scalar has up to two raw texts: a candidate, which it finds in its node
(`InjectionPoint.Finds`), and its default.  A reader tries them in this order (`Reader.Settles`):

    the text is substituted once, and converted once
    it can be read      the point gets what it is read as; the others are not looked at
    it cannot be read   that is reported once, and the next one is tried
    none is left        the point gets nothing

What a reader does to the journal, its substitutions and conversions, is left open.
-/

namespace ComponentAssembly

open Assemble

/-! ## Attributes of a name -/

namespace Attributes

/-- Some attribute has a name, ignoring ASCII case. -/
def Names (attributes : Attributes) (name : String) : Prop :=
  ∃ a ∈ attributes, Text.sameIgnoringCase a.1 name

/-- The first of some names that any attribute has finds the first attribute that has it.  The others
are left in their order. -/
inductive Finds (attributes : Attributes) (names : List String) :
    Option (String × String) → Attributes → Prop
  | nothing (h : ∀ name ∈ names, ¬ attributes.Names name) : Finds attributes names none attributes
  | first {earlier later : List String} {name : String} {before after : Attributes}
      {a : String × String} (hnames : names = earlier ++ name :: later)
      (hearlier : ∀ other ∈ earlier, ¬ attributes.Names other)
      (hattributes : attributes = before ++ a :: after)
      (hbefore : ∀ other ∈ before, ¬ Text.sameIgnoringCase other.1 name)
      (hname : Text.sameIgnoringCase a.1 name) : Finds attributes names (some a) (before ++ after)

variable {attributes : Attributes} {name : String}

theorem names_iff_isSome : attributes.Names name ↔ (attributes.taken name).isSome := by
  unfold taken Names
  rw [List.find?_isSome]

/-- What is taken by a name is the first attribute that has it. -/
theorem finds_of_taken {names earlier later : List String} {a : String × String}
    (hnames : names = earlier ++ name :: later)
    (hearlier : ∀ other ∈ earlier, ¬ attributes.Names other) (h : attributes.taken name = some a) :
    attributes.Finds names (some a) (attributes.without name) := by
  obtain ⟨hname, before, after, rfl, hbefore⟩ := List.find?_eq_some_iff_append.mp h
  have hwithout : without (before ++ a :: after) name = before ++ after := by
    unfold without
    rw [List.eraseP_append_right _ (by simpa using hbefore)]
    exact congrArg (before ++ ·) (List.eraseP_cons_of_pos hname)
  rw [hwithout]
  exact .first hnames hearlier rfl (by simpa using hbefore) hname

/-- One name finds what is taken by it. -/
theorem finds_taken (attributes : Attributes) (name : String) :
    attributes.Finds [name] (attributes.taken name) (attributes.without name) := by
  cases htaken : attributes.taken name with
  | none =>
    have hnone : ¬ attributes.Names name := by simp [names_iff_isSome, htaken]
    have hwithout : attributes.without name = attributes :=
      List.eraseP_of_forall_not (List.find?_eq_none.mp htaken)
    rw [hwithout]
    exact .nothing (by simpa using hnone)
  | some a => exact finds_of_taken (List.nil_append _).symm (by simp) htaken

end Attributes

/-- An attribute point finds what the first of its name and aliases finds that is in use. -/
theorem Visit.takeAttribute_finds (p : InjectionPoint) (attributes : Attributes) :
    ∃ found, attributes.Finds (p.name :: p.aliases) found (takeAttribute p attributes).2 ∧
      (takeAttribute p attributes).1 = found.map (·.2) := by
  unfold takeAttribute
  cases hname : attributeName p attributes with
  | none =>
    refine ⟨none, .nothing fun name hmem => ?_, rfl⟩
    rw [Attributes.names_iff_isSome]
    exact List.find?_eq_none.mp hname name hmem
  | some name =>
    obtain ⟨hsome, earlier, later, hnames, hearlier⟩ := List.find?_eq_some_iff_append.mp hname
    obtain ⟨a, ha⟩ := Option.isSome_iff_exists.mp hsome
    refine ⟨some a, Attributes.finds_of_taken hnames (fun other hother => ?_) ha, ?_⟩
    · rw [Attributes.names_iff_isSome]
      simpa using hearlier other hother
    · show (attributes.taken name).map (·.2) = _
      rw [ha]

/-! ## What a point finds in a node -/

theorem Visit.elementText_eq_some_iff {n : Node Instance} {text : String} :
    elementText n = some text ↔ n.text = some text ∧ text ≠ "" := by
  unfold elementText
  cases n.text with
  | none => simp
  | some other =>
    by_cases hempty : other = ""
    · simp +contextual [hempty]
    · have hne : other = text → text ≠ "" := fun hsame => hsame ▸ hempty
      simpa [hempty] using hne

@[simp]
theorem Visit.elementText_eq_none_iff {n : Node Instance} :
    elementText n = none ↔ ∀ text, n.text = some text → text = "" := by
  rw [Option.eq_none_iff_forall_ne_some]
  simp only [ne_eq, elementText_eq_some_iff, not_and, Decidable.not_not]

/-- What is said if a node has both a text and the attribute of a value point. -/
def InjectionPoint.conflict (p : InjectionPoint) (path : String) : Diagnostic where
  kind := .unmatchedConfiguration
  path := path
  message := "同时设置了文本值和 " ++ p.name ++ " 属性, 使用文本值"

/-- The candidate that a point finds in the node of a visit, the attributes that are left there, and
what is reported of it. -/
inductive InjectionPoint.Finds (p : InjectionPoint) (v : Visit) :
    Option String → Attributes → List Diagnostic → Prop
  | fromAttribute {found : Option (String × String)} {left : Attributes}
      (hsource : p.source = .attribute)
      (hfound : v.node.attributes.Finds (p.name :: p.aliases) found left) :
      p.Finds v (found.map (·.2)) left []
  | fromValue {found : Option (String × String)} {left : Attributes} (hsource : p.source = .value)
      (htext : ∀ text, v.node.text = some text → text = "")
      (hfound : v.node.attributes.Finds [p.name] found left) : p.Finds v (found.map (·.2)) left []
  /-- The attribute gives way to the text, which is reported if there is one. -/
  | fromText {text : String} {found : Option (String × String)} {left : Attributes}
      (hsource : p.source = .value) (htext : v.node.text = some text) (hne : text ≠ "")
      (hfound : v.node.attributes.Finds [p.name] found left) :
      p.Finds v (some text) left (found.toList.map fun _ => p.conflict v.context.path)

/-! ## Readers -/

/-- A journal after some reports. -/
def Journal.reported (j : Journal) (ds : List Diagnostic) : Journal :=
  ds.foldl (fun j d => (Journal.report d.kind d.path d.message j).2) j

theorem Journal.tells_reported (j : Journal) (ds : List Diagnostic) : j.Tells (j.reported ds) ds := by
  induction ds generalizing j with
  | nil => exact .refl j
  | cons d rest ih => exact (j.tells_report d.kind d.path d.message).trans (ih _)

/-- A raw text, and what is said if it cannot be read, for the reason. -/
structure RawText where
  text : String
  complaint : String → String

/-- The raw texts of a point: what it found, and its default. -/
def InjectionPoint.rawTexts (p : InjectionPoint) (candidate : Option String) : List RawText :=
  (candidate.map fun text => ⟨text, fun reason => p.name ++ ": " ++ reason⟩).toList ++
    (p.default?.map fun text => ⟨text, fun reason => p.name ++ " 的默认值无效: " ++ reason⟩).toList

/-- What is reported of a raw text that cannot be read. -/
def RawText.failure (raw : RawText) (path reason : String) : Diagnostic where
  kind := .conversionFailure
  path := path
  message := raw.complaint reason

namespace Reader

/-- A reader tries raw texts until it can read one: what it reports, what the argument is, and how the
journal changes. -/
inductive Settles (r : Reader) (path : String) :
    List RawText → List Diagnostic → Argument → Journal → Journal → Prop
  | absent (j : Journal) : r.Settles path [] [] .absent j j
  | read {raw : RawText} {rest : List RawText} {text : String} {value : Instance} {j k l : Journal}
      (hsubstitute : r.substitute raw.text j = (text, k))
      (hconvert : r.convert text k = (.ok value, l)) :
      r.Settles path (raw :: rest) [] (.scalar text value) j l
  | failed {raw : RawText} {rest : List RawText} {text reason : String} {told : List Diagnostic}
      {argument : Argument} {j k l m : Journal}
      (hsubstitute : r.substitute raw.text j = (text, k))
      (hconvert : r.convert text k = (.error reason, l))
      (hrest : r.Settles path rest told argument (l.reported [raw.failure path reason]) m) :
      r.Settles path (raw :: rest) (raw.failure path reason :: told) argument j m

/-- A reader that reports nothing of its own accord. -/
structure Silent (r : Reader) : Prop where
  substitute : ∀ raw (j : Journal), j.Tells (r.substitute raw j).2 []
  convert : ∀ text (j : Journal), j.Tells (r.convert text j).2 []

variable {r : Reader} {path : String}

/-- A silent reader reports the failures, and nothing else. -/
theorem Settles.tells {raws : List RawText} {told : List Diagnostic} {argument : Argument}
    {j k : Journal} (hsilent : r.Silent) (h : r.Settles path raws told argument j k) :
    j.Tells k told := by
  have hone : ∀ {raw text : String} {result : Except String Instance} {j k l : Journal},
      r.substitute raw j = (text, k) → r.convert text k = (result, l) → j.Tells l [] := by
    intro raw text result j k l hsubstitute hconvert
    have hfirst := hsilent.substitute raw j
    have hsecond := hsilent.convert text k
    rw [hsubstitute] at hfirst
    rw [hconvert] at hsecond
    exact hfirst.trans hsecond
  induction h with
  | absent j => exact .refl j
  | read hsubstitute hconvert => exact hone hsubstitute hconvert
  | failed hsubstitute hconvert _ ih =>
    exact ((hone hsubstitute hconvert).trans (Journal.tells_reported _ _)).trans ih

theorem defaultArgument_settles (r : Reader) (p : InjectionPoint) (c : VisitContext) (j : Journal) :
    ∃ told argument c' k, r.defaultArgument p c j = ((argument, c'), k) ∧
      r.Settles c.path (p.rawTexts none) told argument j k ∧
        c'.path = c.path ∧ c'.substitutor = c.substitutor := by
  unfold defaultArgument InjectionPoint.rawTexts
  cases p.default? with
  | none => exact ⟨[], .absent, _, j, rfl, .absent j, rfl, rfl⟩
  | some default =>
    cases hsubstitute : r.substitute default j with
    | mk text k =>
      cases hconvert : r.convert text k with
      | mk result l =>
        simp only [run_stateBind, hsubstitute, hconvert]
        cases result with
        | ok value => exact ⟨_, _, _, _, rfl, .read hsubstitute hconvert, rfl, rfl⟩
        | error reason =>
          exact ⟨_, _, _, _, rfl, .failed hsubstitute hconvert (.absent _), rfl, rfl⟩

/-- The argument of a candidate is that of the raw texts of its point. -/
theorem textArgument_settles (r : Reader) (p : InjectionPoint) (candidate : Option String)
    (c : VisitContext) (j : Journal) :
    ∃ told argument c' k, r.textArgument p candidate c j = ((argument, c'), k) ∧
      r.Settles c.path (p.rawTexts candidate) told argument j k ∧
        c'.path = c.path ∧ c'.substitutor = c.substitutor := by
  unfold textArgument
  cases candidate with
  | none => exact r.defaultArgument_settles p c j
  | some raw =>
    cases hsubstitute : r.substitute raw j with
    | mk text k =>
      cases hconvert : r.convert text k with
      | mk result l =>
        simp only [run_stateBind, hsubstitute, hconvert]
        cases result with
        | ok value => exact ⟨_, _, _, _, rfl, .read hsubstitute hconvert, rfl, rfl⟩
        | error reason =>
          obtain ⟨told, argument, c', m, hrun, hsettles, hplace⟩ :=
            r.defaultArgument_settles p c (l.reported
              [RawText.failure ⟨raw, fun reason => p.name ++ ": " ++ reason⟩ c.path reason])
          exact ⟨_, argument, c', m, hrun, .failed hsubstitute hconvert hsettles, hplace⟩

/-- A visit of a scalar point: it finds raw texts, and a reader settles on one. -/
inductive Visits (r : Reader) (p : InjectionPoint) (v : Visit) (j : Journal) :
    (Argument × Visit) × Journal → Prop
  | found {candidate : Option String} {left : Attributes} {conflicts told : List Diagnostic}
      {argument : Argument} {context : VisitContext} {k : Journal}
      (hfinds : p.Finds v candidate left conflicts)
      (hsettles : r.Settles v.context.path (p.rawTexts candidate) told argument
        (j.reported conflicts) k)
      (hpath : context.path = v.context.path)
      (hsubstitutor : context.substitutor = v.context.substitutor) :
      r.Visits p v j ((argument, { node := { v.node with attributes := left }, context }), k)

/-- The candidate is found; what follows is settled by the reader. -/
theorem visits_of_finds (r : Reader) {p : InjectionPoint} {v : Visit} {candidate : Option String}
    {left : Attributes} {conflicts : List Diagnostic} (hfinds : p.Finds v candidate left conflicts)
    (j : Journal) :
    r.Visits p v j ((r.textArgument p candidate v.context >>= fun x =>
      pure (x.1, { node := { v.node with attributes := left }, context := x.2 }))
        (j.reported conflicts)) := by
  obtain ⟨told, argument, context, k, hrun, hsettles, hpath, hsubstitutor⟩ :=
    r.textArgument_settles p candidate v.context (j.reported conflicts)
  simp only [run_stateBind, hrun]
  exact .found hfinds hsettles hpath hsubstitutor

theorem visitAttribute_visits (r : Reader) {p : InjectionPoint} (hsource : p.source = .attribute)
    (v : Visit) (j : Journal) : r.Visits p v j (r.visitAttribute p v j) := by
  obtain ⟨found, hfound, hcandidate⟩ := Visit.takeAttribute_finds p v.node.attributes
  have hvisits := r.visits_of_finds (.fromAttribute (v := v) hsource hfound) j
  rw [← hcandidate] at hvisits
  exact hvisits

theorem visitValue_visits (r : Reader) {p : InjectionPoint} (hsource : p.source = .value)
    (v : Visit) (j : Journal) : r.Visits p v j (r.visitValue p v j) := by
  have hfound := Attributes.finds_taken v.node.attributes p.name
  have hfind : v.node.attributes.find p.name = (v.node.attributes.taken p.name).map (·.2) := rfl
  unfold visitValue
  cases htext : Visit.elementText v.node with
  | none =>
    have hvisits := r.visits_of_finds
      (.fromValue (v := v) hsource (Visit.elementText_eq_none_iff.mp htext) hfound) j
    rw [← hfind] at hvisits
    exact hvisits
  | some text =>
    obtain ⟨hsome, hne⟩ := Visit.elementText_eq_some_iff.mp htext
    have hvisits := r.visits_of_finds (.fromText (v := v) hsource hsome hne hfound) j
    rw [hfind]
    -- Only if there is an attribute as well, anything is reported before the text is read.
    cases htaken : v.node.attributes.taken p.name with
    | none =>
      rw [htaken] at hvisits
      exact hvisits
    | some a =>
      rw [htaken] at hvisits
      exact hvisits

/-- A visit that cannot fail does not; a silent reader adds the failures only. -/
theorem Visits.total {r : Reader} {p : InjectionPoint} {v : Visit} {j : Journal}
    {step : StateM Journal (Argument × Visit)} (h : r.Visits p v j (step j)) :
    ∃ candidate left conflicts failures argument context k,
      Visit.total step j =
        ((.ok argument, { node := { v.node with attributes := left }, context }), k) ∧
      p.Finds v candidate left conflicts ∧
      r.Settles v.context.path (p.rawTexts candidate) failures argument (j.reported conflicts) k ∧
      (r.Silent → j.Tells k (conflicts ++ failures)) := by
  generalize hstep : step j = found at h
  cases h with
  | found hfinds hsettles _ _ =>
    have hrun : Visit.total step j = _ := bind_run hstep
    refine ⟨_, _, _, _, _, _, _, hrun, hfinds, hsettles, fun hsilent => ?_⟩
    exact (j.tells_reported _).trans (hsettles.tells hsilent)

end Reader

/-! ## Points that read for themselves -/

/-- The reader of a point converts as the point does. -/
theorem Visit.reader_converts {p : InjectionPoint} {c : VisitContext} {text : String}
    {result : Except String Instance} {j k : Journal}
    (h : (reader p c).convert text j = (result, k)) :
    (∃ scalar i, p.convert text = .ok scalar ∧ i.value = .scalar scalar ∧ result = .ok i) ∨
      ∃ reason, p.convert text = .error reason ∧ result = .error reason := by
  unfold reader at h
  dsimp only at h
  cases hconvert : p.convert text with
  | ok scalar =>
    rw [hconvert] at h
    cases h
    exact .inl ⟨scalar, _, rfl, rfl, rfl⟩
  | error reason =>
    rw [hconvert] at h
    cases h
    exact .inr ⟨reason, rfl, rfl⟩

/-- The reader of a point reports nothing of its own accord. -/
theorem Visit.silent_reader (p : InjectionPoint) (c : VisitContext) : (reader p c).Silent where
  substitute _ j := .refl j
  convert text j := by
    unfold reader
    dsimp only
    cases p.convert text with
    | ok scalar => exact (Journal.Tells.refl j).of_same rfl rfl rfl
    | error reason => exact .refl j

/-- **Scalar points are read by one law.**  A point finds a candidate in its node, and leaves the other
attributes in their order; the candidate, then the default, are each substituted once and converted
once, until one can be read.  If the reader reports nothing of its own accord, what is reported is that
there was both a text and an attribute, and then one failure for each conversion that failed.  So it is
if the point reads for itself. -/
theorem Visit.visit_scalar (read : VisitContext → Reader) {p : InjectionPoint}
    (hsource : p.source = .attribute ∨ p.source = .value) (v : Visit) (j : Journal) :
    ∃ visit candidate left conflicts failures argument context k,
      visitWith? read p = some visit ∧
      visit v j = ((.ok argument, { node := { v.node with attributes := left }, context }), k) ∧
      p.Finds v candidate left conflicts ∧
      (read v.context).Settles v.context.path (p.rawTexts candidate) failures argument
        (j.reported conflicts) k ∧
      ((read v.context).Silent → j.Tells k (conflicts ++ failures)) ∧
      (read = reader p → visit? p = some visit ∧ j.Tells k (conflicts ++ failures)) := by
  obtain ⟨step, hvisit, hvisits⟩ : ∃ step : Visit → StateM Journal (Argument × Visit),
      visitWith? read p = some (fun v => total (step v)) ∧
        (read v.context).Visits p v j (step v j) := by
    unfold visitWith?
    rcases hsource with hsource | hsource
    · rw [hsource]
      exact ⟨_, rfl, (read v.context).visitAttribute_visits hsource v j⟩
    · rw [hsource]
      exact ⟨_, rfl, (read v.context).visitValue_visits hsource v j⟩
  obtain ⟨candidate, left, conflicts, failures, argument, context, k, hrun, hfinds, hsettles, htells⟩ :=
    hvisits.total
  refine ⟨_, candidate, left, conflicts, failures, argument, context, k, hvisit, hrun, hfinds,
    hsettles, htells, ?_⟩
  rintro rfl
  exact ⟨hvisit, htells (silent_reader p v.context)⟩

/-- A point for a port number. -/
def InjectionPoint.port : InjectionPoint :=
  { fromValue "port" ⟨"i32"⟩ with default? := some "any" }

/-- A visit of a node that has a text and the attribute of the port. -/
def Visit.atPort : Visit where
  node := { name := "Server", text := some "eighty", attributes := [("port", "80"), ("host", "here")] }
  context := { path := "Server" }

/-- The text wins over the attribute, but neither it nor the default is a number. -/
theorem Visit.visit_scalar_port : ∃ candidate left conflicts failures argument k,
    InjectionPoint.port.Finds atPort candidate left conflicts ∧
    (reader .port atPort.context).Settles "Server" (InjectionPoint.port.rawTexts candidate) failures
      argument (({} : Journal).reported conflicts) k ∧
    argument.isAbsent ∧ (conflicts ++ failures).length = 3 := by
  have hsource : InjectionPoint.port.source = .value := rfl
  obtain ⟨visit, candidate, left, conflicts, failures, argument, context, k, -, hrun, hfinds,
    hsettles, -, hown⟩ := visit_scalar (reader .port) (.inr hsource) atPort {}
  obtain ⟨hvisit, htells⟩ := hown rfl
  have hdone : ((visit? .port).map fun visit =>
      ((visit atPort {}).1.1.toOption.map (·.isAbsent), (visit atPort {}).2.diagnostics.length)) =
        some (some true, 3) := by decide +kernel
  rw [hvisit, Option.map_some, hrun] at hdone
  obtain ⟨habsent, hlength⟩ : argument.isAbsent = true ∧ k.diagnostics.length = 3 := by
    simpa [Except.toOption] using hdone
  rw [htells.diagnostics] at hlength
  exact ⟨candidate, left, conflicts, failures, argument, k, hfinds, hsettles, habsent, hlength⟩

end ComponentAssembly
