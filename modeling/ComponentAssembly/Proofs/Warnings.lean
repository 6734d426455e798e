import ComponentAssembly.Proofs.Watching

/-!
# Only configuration reports failed validations

Whatever a construction and all that it asks for may do, what they report are warnings
(`construct_warned`).  A failed validation is reported by the configuration of a node alone.

The settings of an injector, which are the declared constructions and whether leftovers are reported,
stay as they are throughout (`State.SameSettings.program`).
-/

namespace ComponentAssembly

open Assemble

/-- A program may do anything but report failed validations. -/
def Remit.warning : Remit := { Remit.free with fails := False }

/-- From a state to a later one only warnings were reported. -/
def State.Warned (s t : State) : Prop :=
  s.journal.Warns t.journal

namespace State.Warned

variable {s t u : State}

theorem trans (h : s.Warned t) (h' : t.Warned u) : s.Warned u :=
  Journal.Warns.trans h h'

/-- Changes of the journal that report nothing. -/
theorem silent (h : s.Warned t) {journal : Journal} (hlog : journal.log = t.journal.log)
    (hcollecting : journal.collecting = t.journal.collecting)
    (hdiagnostics : journal.diagnostics = t.journal.diagnostics) :
    s.Warned { t with journal } := by
  obtain ⟨ds, htells, hds⟩ := h
  exact ⟨ds, htells.of_same hlog hcollecting hdiagnostics, hds⟩

theorem watched (s : State) : Watched .warning s.Warned where
  quiet _ _ _ _ hwarns h := Journal.Warns.trans h hwarns
  failure hfails := hfails.elim
  note _ _ _ h := h.silent rfl rfl rfl
  component _ _ h := ⟨h.silent rfl rfl rfl, trivial⟩
  trials _ _ h := h
  counters _ _ h := h
  supplier _ _ h _ := h
  reads _ _ := trivial
  same _ _ hlike h := by
    unfold State.Warned at h ⊢
    rw [hlike.journal]
    exact h
  drawn _ _ _ _ _ h _ := h
  stops _ := trivial
  points _ := trivial
  keys _ := trivial

end State.Warned

/-- The answers of a provider report warnings at most. -/
def Provider.Warns (given : Provider) : Prop :=
  ∀ s : State, given.Keeps .warning s.Warned

theorem Provider.warns_of_callWithin (depth : Nat) : (Provider.of (callWithin depth)).Warns :=
  fun s => (State.Warned.watched s).provider_keeps ((State.Warned.watched s).keeps_callWithin depth)

namespace Provider.Warns

variable {given : Provider} (hgiven : given.Warns)
include hgiven

/-- Programs that report no failed validation report warnings at most. -/
theorem program {α : Type} [Stoppable α] {Q : α → Prop} {m : Provider → StateM State α}
    (hm : Program .warning Q m) (s : State) : s.Warned (m given s).2 :=
  (Program.keeps (State.Warned.watched s).toKeeps (hgiven s) hm s (.refl _)).1

/-- **Constructions** report warnings at most. -/
theorem construct_warned (c : Construction) (node : Option (Node Instance)) (path : String)
    (s : State) : s.Warned (construct given c node path s).2 :=
  hgiven.program (Program.construct node path fun _ _ => trivial) s

end Provider.Warns

/-! ## Settings -/

/-- The settings of two states are the same. -/
structure State.SameSettings (s t : State) : Prop where
  declarations : t.declarations = s.declarations
  setting : t.reportUnmatched = s.reportUnmatched

namespace State.SameSettings

variable {s t : State}

theorem declared (h : s.SameSettings t) (type : TypePath) : t.declared type = s.declared type := by
  unfold State.declared
  rw [h.declarations]

theorem watched (s : State) : Watched .free s.SameSettings where
  quiet _ _ _ _ _ h := ⟨h.declarations, h.setting⟩
  failure _ _ _ _ h := ⟨h.declarations, h.setting⟩
  note _ _ _ h := ⟨h.declarations, h.setting⟩
  component _ _ h := ⟨⟨h.declarations, h.setting⟩, trivial⟩
  trials _ _ h := ⟨h.declarations, h.setting⟩
  counters _ _ h := ⟨h.declarations, h.setting⟩
  supplier _ _ h _ := ⟨h.declarations, h.setting⟩
  reads _ _ := trivial
  same _ _ hlike h := ⟨hlike.declarations.trans h.declarations, hlike.setting.trans h.setting⟩
  drawn _ _ _ _ _ h _ := ⟨h.declarations, h.setting⟩
  stops _ := trivial
  points _ := trivial
  keys _ := trivial

/-- **Programs** leave the settings as they are. -/
theorem program {α : Type} [Stoppable α] {Q : α → Prop} {m : Provider → StateM State α}
    (hm : Program .free Q m) (depth : Nat) (s : State) :
    s.SameSettings (m (Provider.of (callWithin depth)) s).2 :=
  have hgiven := (watched s).provider_keeps ((watched s).keeps_callWithin depth)
  (Program.keeps (watched s).toKeeps hgiven hm s ⟨rfl, rfl⟩).1

end State.SameSettings

end ComponentAssembly
