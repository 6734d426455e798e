import ComponentAssembly.Proofs.Watching

/-!
# What is noted about a component

Events name the component that they are about.  A component in the making is known to none but the
construction that makes it: whatever else is asked for meanwhile, and however deep it is nested,
nothing is noted about it:

    Keeps (State.Traced n events) (callWithin depth f)

where `Traced n events` says that `n` has been named, and that `events` are those about it.
-/

namespace ComponentAssembly

open Assemble

/-- The events about a component. -/
def Journal.trace (j : Journal) (n : ComponentName) : List Event :=
  j.events.filter (·.component? = some n)

/-- A component has been named, and some events are all that was noted about it. -/
def State.Traced (n : ComponentName) (events : List Event) (s : State) : Prop :=
  n.serial ≤ s.journal.serials ∧ s.journal.trace n = events

/-- A program may do anything but note changes of a component. -/
def Remit.besides (n : ComponentName) : Remit :=
  { Remit.free with own := (· ≠ n) }

theorem Journal.trace_note_own (j : Journal) {n : ComponentName} {event : Event}
    (h : event.component? = some n) : (Journal.note event j).2.trace n = j.trace n ++ [event] := by
  show (j.events ++ [event]).filter _ = _
  simp [List.filter_append, Journal.trace, h]

theorem Journal.trace_note_other (j : Journal) {n : ComponentName} {event : Event}
    (h : event.component? ≠ some n) : (Journal.note event j).2.trace n = j.trace n := by
  show (j.events ++ [event]).filter _ = _
  simp [List.filter_append, Journal.trace, h]

namespace State.Traced

variable {n : ComponentName} {events : List Event}

theorem note_own {s : State} (h : s.Traced n events) {event : Event}
    (hown : event.component? = some n) :
    State.Traced n (events ++ [event]) (State.onJournal (Journal.note event) s).2 :=
  ⟨h.1, (s.journal.trace_note_own hown).trans (by rw [h.2])⟩

theorem note_other {s : State} (h : s.Traced n events) {event : Event}
    (hother : event.component? ≠ some n) :
    State.Traced n events (State.onJournal (Journal.note event) s).2 :=
  ⟨h.1, (s.journal.trace_note_other hother).trans h.2⟩

/-- Other components get names of their own. -/
theorem fresh {s : State} (h : s.Traced n events) (type : TypePath) :
    (⟨type, s.journal.serials + 1⟩ : ComponentName) ≠ n := by
  rintro rfl
  exact absurd h.1 (Nat.not_succ_le_self _)

/-- Steps that are not about the component keep what is noted about it. -/
theorem watched (n : ComponentName) (events : List Event) :
    Watched (.besides n) (State.Traced n events) where
  quiet s journal hevents hserials _ h := by
    unfold State.Traced Journal.trace at h ⊢
    rw [hevents, hserials]
    exact h
  failure _ s path message h := by
    have hsame : (Journal.report .validationFailure path message s.journal).2.events =
          s.journal.events ∧
        (Journal.report .validationFailure path message s.journal).2.serials = s.journal.serials :=
      Journal.report_apart s.journal _ path message
    have hown : n.serial ≤ (Journal.report .validationFailure path message s.journal).2.serials ∧
        (Journal.report .validationFailure path message s.journal).2.events.filter
          (·.component? = some n) = events := by
      rw [hsame.1, hsame.2]
      exact h
    exact hown
  note s event hown h := h.note_other fun hn => hown n hn rfl
  component s type h := by
    have hfresh := h.fresh type
    have hother : Event.component? (.created ⟨type, s.journal.serials + 1⟩) ≠ some n :=
      fun heq => hfresh (Option.some.inj heq)
    exact ⟨⟨Nat.le_succ_of_le h.1, (s.journal.trace_note_other hother).trans h.2⟩, hfresh⟩
  trials _ _ h := h
  counters _ _ h := h
  supplier _ _ h _ := h
  reads _ _ := trivial
  same s t hlike h := by
    unfold State.Traced at h ⊢
    rw [hlike.journal]
    exact h
  drawn _ _ _ _ _ h _ := h
  stops _ := trivial
  points _ := trivial
  keys _ := trivial

theorem remit_keeps (n : ComponentName) (events : List Event) :
    (Remit.besides n).Keeps (State.Traced n events) :=
  (watched n events).toKeeps

theorem provider_keeps {call : Factory → Assemble Instance}
    (hcall : ∀ f, Keeps (State.Traced n events) (call f)) :
    (Provider.of call).Keeps (.besides n) (State.Traced n events) :=
  (watched n events).provider_keeps hcall

/-- **Calls.**  However deep a call may go, it notes nothing about a component that was named before. -/
theorem keeps_callWithin (depth : Nat) (f : Factory) :
    Keeps (State.Traced n events) (callWithin depth f) :=
  (watched n events).keeps_callWithin depth f

end State.Traced

end ComponentAssembly
